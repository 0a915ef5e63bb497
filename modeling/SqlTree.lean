import SqlTree.Bind
import SqlTree.Build.Call
import SqlTree.Build.Condition
import SqlTree.Build.Expression
import SqlTree.Build.Query
import SqlTree.Build.Select
import SqlTree.Build.Source
import SqlTree.Calendar.Date
import SqlTree.Calendar.Scan
import SqlTree.Calendar.Time
import SqlTree.Calendar.Timestamp
import SqlTree.Clause
import SqlTree.Codec.Part
import SqlTree.Codec.Report
import SqlTree.Codec.Tree
import SqlTree.Codec.Value
import SqlTree.Codec.View
import SqlTree.Dialect
import SqlTree.Doc
import SqlTree.Edit
import SqlTree.Edit.Rule
import SqlTree.Enumerated
import SqlTree.Error
import SqlTree.Event
import SqlTree.Feature
import SqlTree.Form
import SqlTree.Json.Basic
import SqlTree.Json.Printer
import SqlTree.Json.Reader
import SqlTree.Kind
import SqlTree.Label
import SqlTree.Literal
import SqlTree.Name
import SqlTree.Numeric.Binary
import SqlTree.Numeric.Decimal
import SqlTree.Numeric.Double
import SqlTree.Operator
import SqlTree.Options
import SqlTree.Param
import SqlTree.Quoter
import SqlTree.Render
import SqlTree.Render.Condition
import SqlTree.Render.Expression
import SqlTree.Render.Form
import SqlTree.Render.Query
import SqlTree.Render.Source
import SqlTree.Render.Window
import SqlTree.Table
import SqlTree.Text.Blank
import SqlTree.Text.Quoted
import SqlTree.Toml.Basic
import SqlTree.Toml.Options
import SqlTree.Toml.Reader
import SqlTree.Toml.Scalar
import SqlTree.Tree
import SqlTree.Tree.Check
import SqlTree.Tree.Equality
import SqlTree.Tree.Node
import SqlTree.Tree.Select
import SqlTree.Tree.View
import SqlTree.TypeName
import SqlTree.Visit
import SqlTree.Window
import SqlTree.Writer
import SqlTree.Proofs.Alike
import SqlTree.Proofs.AlwaysValid
import SqlTree.Proofs.Apart
import SqlTree.Proofs.ApartForms
import SqlTree.Proofs.AppendOnly
import SqlTree.Proofs.ArithmeticMeaning
import SqlTree.Proofs.BoundOrder
import SqlTree.Proofs.BuiltValid
import SqlTree.Proofs.CapabilityOrder
import SqlTree.Proofs.ClauseWise
import SqlTree.Proofs.Closed
import SqlTree.Proofs.ConditionMeaning
import SqlTree.Proofs.Congruence
import SqlTree.Proofs.DecodedValid
import SqlTree.Proofs.Demands
import SqlTree.Proofs.DocParams
import SqlTree.Proofs.DottedNames
import SqlTree.Proofs.Drawn
import SqlTree.Proofs.Edited
import SqlTree.Proofs.EveryTerm
import SqlTree.Proofs.FaithfulCodec
import SqlTree.Proofs.Filled
import SqlTree.Proofs.Fragments
import SqlTree.Proofs.GuardedDialect
import SqlTree.Proofs.InlineBind
import SqlTree.Proofs.InlineFailure
import SqlTree.Proofs.InlineText
import SqlTree.Proofs.Interchange
import SqlTree.Proofs.KeptValues
import SqlTree.Proofs.Leads
import SqlTree.Proofs.LeafEdit
import SqlTree.Proofs.LeafVisit
import SqlTree.Proofs.LexedText
import SqlTree.Proofs.Lexemes
import SqlTree.Proofs.LiteralReading
import SqlTree.Proofs.Lockstep
import SqlTree.Proofs.NameBook
import SqlTree.Proofs.NamePieces
import SqlTree.Proofs.NamedBinding
import SqlTree.Proofs.Needs
import SqlTree.Proofs.NestedQueries
import SqlTree.Proofs.NodeCodec
import SqlTree.Proofs.NullsKey
import SqlTree.Proofs.Numbered
import SqlTree.Proofs.NumberedLooks
import SqlTree.Proofs.OperatorReading
import SqlTree.Proofs.OperatorText
import SqlTree.Proofs.Passage
import SqlTree.Proofs.Placed
import SqlTree.Proofs.Placeholders
import SqlTree.Proofs.PostfixText
import SqlTree.Proofs.PrettyLayout
import SqlTree.Proofs.QuotedText
import SqlTree.Proofs.Rendered
import SqlTree.Proofs.Renumbered
import SqlTree.Proofs.Replaced
import SqlTree.Proofs.RowWindowText
import SqlTree.Proofs.RowWindows
import SqlTree.Proofs.SameValue
import SqlTree.Proofs.ScalarText
import SqlTree.Proofs.Scan
import SqlTree.Proofs.SetOperationMeaning
import SqlTree.Proofs.SortOrder
import SqlTree.Proofs.SoundExpressions
import SqlTree.Proofs.SoundForms
import SqlTree.Proofs.SoundQueries
import SqlTree.Proofs.Sources
import SqlTree.Proofs.SpelledText
import SqlTree.Proofs.TracedParams
import SqlTree.Proofs.Traversal
import SqlTree.Proofs.Unresolved
import SqlTree.Proofs.Valid
import SqlTree.Proofs.ValueBlind
import SqlTree.Proofs.ValuesInPlace
import SqlTree.Proofs.Visited
import SqlTree.Proofs.WovenText
import SqlTree.Proofs.WriterRun
import SqlTree.Proofs.Writing
import SqlTree.Proofs.WrittenParams
