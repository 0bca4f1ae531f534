import SqlCompose.Fragment.Clauses
import SqlCompose.Fragment.OfJson
import SqlCompose.Json.Reader
import SqlCompose.Proofs.ColumnMap.Index
import SqlCompose.Proofs.Identifier.RoundTrip
import SqlCompose.Proofs.Identifier.Grammar
import SqlCompose.Proofs.Outline.Weave
import SqlCompose.Settings
import SqlCompose.Value.Literal
import SqlCompose.Wire.Encode
import SqlCompose.Proofs.Document
import SqlCompose.Proofs.Plan
import SqlCompose.Proofs.Token.Lexer
import SqlCompose.Proofs.Token.Slots
import SqlCompose.Proofs.Token.Documents
import SqlCompose.Proofs.Outline.Erase
import SqlCompose.Proofs.Leaf
import SqlCompose.Proofs.Statement
import SqlCompose.Proofs.Template.Calls
import SqlCompose.Proofs.Exchange.Json
import SqlCompose.Proofs.Exchange.Leaf
import SqlCompose.Proofs.Exchange.Template
import SqlCompose.Proofs.Reading.Leaf
import SqlCompose.Proofs.Reading.Meaning
import SqlCompose.Proofs.Reading.Tree
import SqlCompose.Proofs.Scan.Text
import SqlCompose.Proofs.Scan.Outline
import SqlCompose.Proofs.Template.Reached
import SqlCompose.Proofs.Scan.Leaf
import SqlCompose.Proofs.Scan.Statement
import SqlCompose.Proofs.Vacuous.Leaf
import SqlCompose.Proofs.Vacuous.Plan
import SqlCompose.Proofs.Vacuous.Drops
import SqlCompose.Proofs.ColumnMap.History
import SqlCompose.Proofs.Settings.Jobs
import SqlCompose.Proofs.Settings.Report
import SqlCompose.Proofs.Text.Blank
import SqlCompose.Proofs.Text.Spelling
import SqlCompose.Proofs.Condition.Head
import SqlCompose.Proofs.Condition.OfJson
import SqlCompose.Proofs.Clause.Group
import SqlCompose.Proofs.Clause.Columns
import SqlCompose.Proofs.Clause.Select
import SqlCompose.Proofs.Clause.Where
import SqlCompose.Proofs.Clause.Absence
import SqlCompose.Proofs.Condition.Canonical
import SqlCompose.Proofs.Binary.Nearest
import SqlCompose.Proofs.Binary.Shortest
import SqlCompose.Proofs.Json.Number
import SqlCompose.Proofs.Json.Text
import SqlCompose.Proofs.Json.RoundTrip
import SqlCompose.Proofs.Value.Literal
import SqlCompose.Proofs.Value.OfJson
import SqlCompose.Proofs.Wire.Parameter
