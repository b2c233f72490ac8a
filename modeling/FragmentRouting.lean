import FragmentRouting.Charset.Basic
import FragmentRouting.Charset.Utf8
import FragmentRouting.Codec.Basic
import FragmentRouting.Codec.Layouts
import FragmentRouting.Codec.Registry
import FragmentRouting.Diagnostics
import FragmentRouting.Fault
import FragmentRouting.Fragment.Basic
import FragmentRouting.Fragment.Build
import FragmentRouting.Json.Flaw
import FragmentRouting.Json.Reader
import FragmentRouting.Json.Writer
import FragmentRouting.Number.Arithmetic
import FragmentRouting.Number.Binary64
import FragmentRouting.Number.Numeral
import FragmentRouting.Number.Shortest
import FragmentRouting.Pattern.Basic
import FragmentRouting.Pattern.Flaw
import FragmentRouting.Pattern.Match
import FragmentRouting.Pattern.Parser
import FragmentRouting.Pattern.Token
import FragmentRouting.Proofs.Charset.Boundary
import FragmentRouting.Proofs.Charset.Lossless
import FragmentRouting.Proofs.Charset.Utf8
import FragmentRouting.Proofs.Codec.Bracket
import FragmentRouting.Proofs.Codec.Carried
import FragmentRouting.Proofs.Codec.CodePoints
import FragmentRouting.Proofs.Codec.Delimited
import FragmentRouting.Proofs.Codec.Framing
import FragmentRouting.Proofs.Codec.Grouping
import FragmentRouting.Proofs.Codec.Json
import FragmentRouting.Proofs.Codec.Scheme
import FragmentRouting.Proofs.Codec.Standard
import FragmentRouting.Proofs.Codec.Textual
import FragmentRouting.Proofs.Except
import FragmentRouting.Proofs.Fragment.Build
import FragmentRouting.Proofs.Fragment.Extract
import FragmentRouting.Proofs.Fragment.Joining
import FragmentRouting.Proofs.Fragment.Link
import FragmentRouting.Proofs.Fragment.Naming
import FragmentRouting.Proofs.Fragment.Parameters
import FragmentRouting.Proofs.Fragment.Refill
import FragmentRouting.Proofs.Fragment.Restore
import FragmentRouting.Proofs.Fragment.Weaving
import FragmentRouting.Proofs.Json.Number
import FragmentRouting.Proofs.Json.RoundTrip
import FragmentRouting.Proofs.Json.Text
import FragmentRouting.Proofs.Json.Value
import FragmentRouting.Proofs.OrderedMap
import FragmentRouting.Proofs.Pattern.Barrier
import FragmentRouting.Proofs.Pattern.Groups
import FragmentRouting.Proofs.Pattern.Language
import FragmentRouting.Proofs.Pattern.Lookahead
import FragmentRouting.Proofs.Pattern.Numbering
import FragmentRouting.Proofs.Pattern.Outline
import FragmentRouting.Proofs.Pattern.Progress
import FragmentRouting.Proofs.Pattern.Reader
import FragmentRouting.Proofs.Pattern.Token
import FragmentRouting.Proofs.Pattern.Ways
import FragmentRouting.Proofs.Router.Faults
import FragmentRouting.Proofs.Router.Journal
import FragmentRouting.Proofs.Router.Link
import FragmentRouting.Proofs.Router.Plain
import FragmentRouting.Proofs.Router.Query
import FragmentRouting.Proofs.Router.Run
import FragmentRouting.Proofs.Router.Search
import FragmentRouting.Proofs.Router.Table
import FragmentRouting.Proofs.Settings.Precedence
import FragmentRouting.Proofs.Settings.Typing
import FragmentRouting.Proofs.Template.Acceptance
import FragmentRouting.Proofs.Template.Agreement
import FragmentRouting.Proofs.Template.AnyHost
import FragmentRouting.Proofs.Template.Captures
import FragmentRouting.Proofs.Template.Compiled
import FragmentRouting.Proofs.Template.Filling
import FragmentRouting.Proofs.Template.Forest
import FragmentRouting.Proofs.Template.Inclusion
import FragmentRouting.Proofs.Template.Language
import FragmentRouting.Proofs.Template.Literals
import FragmentRouting.Proofs.Template.Lockstep
import FragmentRouting.Proofs.Template.Memory
import FragmentRouting.Proofs.Template.Narrowable
import FragmentRouting.Proofs.Template.Pieces
import FragmentRouting.Proofs.Template.Query
import FragmentRouting.Proofs.Template.Reading
import FragmentRouting.Proofs.Template.Requests
import FragmentRouting.Proofs.Template.Rewriting
import FragmentRouting.Proofs.Template.Section
import FragmentRouting.Proofs.Template.Segments
import FragmentRouting.Proofs.Template.Slots
import FragmentRouting.Proofs.Template.Source
import FragmentRouting.Proofs.Template.Verbatim
import FragmentRouting.Proofs.Template.Words
import FragmentRouting.Proofs.Text.Basic
import FragmentRouting.Proofs.Text.Search
import FragmentRouting.Proofs.Wire.Grammar
import FragmentRouting.Proofs.Wire.Joining
import FragmentRouting.Proofs.Wire.Pairs
import FragmentRouting.Proofs.Wire.Percent
import FragmentRouting.Proofs.Wire.Reading
import FragmentRouting.Proofs.Wire.Respelling
import FragmentRouting.Proofs.Wire.Urlencoded
import FragmentRouting.Router.Basic
import FragmentRouting.Settings.Basic
import FragmentRouting.Settings.Source
import FragmentRouting.Template.Compiler
import FragmentRouting.Template.Host
import FragmentRouting.Template.Narrowing
import FragmentRouting.Template.Piece
import FragmentRouting.Text.Basic
import FragmentRouting.Text.CodePoints
import FragmentRouting.Text.LowerCase
import FragmentRouting.Text.Property
import FragmentRouting.Text.Quoted
import FragmentRouting.Text.Search
import FragmentRouting.Value.Basic
import FragmentRouting.Value.Display
import FragmentRouting.Value.Time
import FragmentRouting.Wire.Pairs
import FragmentRouting.Wire.Percent
import FragmentRouting.Yaml.Basic
import FragmentRouting.Yaml.Graph.Basic
import FragmentRouting.Yaml.Graph.Parser
import FragmentRouting.Yaml.Reading
import FragmentRouting.Yaml.Scalar
import FragmentRouting.Yaml.ScalarText
import FragmentRouting.Yaml.Tag
import FragmentRouting.Yaml.Timestamp
import FragmentRouting.Yaml.Token
