import GraphSql.Config.File
import GraphSql.Json
import GraphSql.Snapshot.Config
import GraphSql.Snapshot.State
import GraphSql.Statement.Defaults
import GraphSql.Proofs.Template.Segmentation
import GraphSql.Proofs.Template.Substitution
import GraphSql.Proofs.Statement.Filtering
import GraphSql.Proofs.Statement.Matching
import GraphSql.Proofs.Statement.Escaping
import GraphSql.Proofs.Statement.Noninterference
import GraphSql.Proofs.Statement.IndexKeys
import GraphSql.Proofs.Tokens.History
import GraphSql.Proofs.Command.Independence
import GraphSql.Proofs.Formatter.Refusal
import GraphSql.Proofs.Statement.Failing
import GraphSql.Proofs.Template.Gluing
import GraphSql.Proofs.Filter.Markers
import GraphSql.Proofs.Template.Spaced
import GraphSql.Proofs.Statement.Configured
import GraphSql.Proofs.Snapshot.States
import GraphSql.Proofs.RecordId.Grammar
import GraphSql.Proofs.Command.Leftmost
import GraphSql.Proofs.Value.Legible
import GraphSql.Proofs.Formatter.Joining
import GraphSql.Proofs.Statement.Ordering
import GraphSql.Proofs.Statement.Limiting
import GraphSql.Proofs.Json.Conversion
import GraphSql.Proofs.Filter.Quotation
